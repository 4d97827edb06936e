import OhanaAgent.Jobs.Exclusivity

/-!
# Worker credentials

A credential is issued by a poll, replaced by a later pairing and renamed by an
identity migration.  The tokens issued so far, each under the identity that the
later migrations gave its worker, say who owns the surviving credential.  Reading
a credential changes nothing, so authorizations may stand anywhere in a run.
-/

namespace OhanaAgent.Jobs

open OhanaAgent.Encoding.Json
open OhanaAgent.Store
open OhanaAgent.Time
open OhanaAgent.Transition

variable {env : Environment} {config : Config} {now : Int} {db after : Database} {call : Call}
  {calls : List Call}

/-- The database after one call. -/
def nextDatabase (env : Environment) (config : Config) (db : Database) (call : Call) : Database :=
  (call.operation.run env config call.now db).2

/-- A call with a property stands in a run from the new database. -/
abbrev Occurred (env : Environment) (config : Config) (P : Database → Call → Prop)
    (calls : List Call) : Prop :=
  Happened (nextDatabase env config) Database.empty P calls

/-- A successful creation of a request with its polling secret. -/
def Opens (env : Environment) (config : Config) (pairingId secret : Text) (db : Database)
    (call : Call) : Prop :=
  (∃ payload code, call.operation = .createPairing payload pairingId secret code) ∧
    Accepted env config db call

/-- A successful rejection of a request. -/
def Rejects (env : Environment) (config : Config) (pairingId : Text) (db : Database)
    (call : Call) : Prop :=
  call.operation = .rejectPairing pairingId ∧ Accepted env config db call

/-- A poll that presents a secret and is answered with a token. -/
def Issues (env : Environment) (config : Config) (pairingId secret token : Text) (db : Database)
    (call : Call) : Prop :=
  ∃ offered row, call.operation = .pollPairing pairingId secret offered ∧
    (call.operation.run env config call.now db).1 = .ok (.pairing row (some token))

/-- The request is stored as expired. -/
def Database.Expired (db : Database) (pairingId : Text) : Prop :=
  ∃ row ∈ db.pairings, row.pairingId = pairingId ∧ row.status = .expired

/-! ## The life of a request -/

/-- Every request comes from a request, or was just created. -/
theorem proceeds_source {next : PairingRow}
    (member : next ∈ (nextDatabase env config db call).pairings) :
    (∃ row ∈ db.pairings,
        Proceeds (fun pairingId => Approves env config pairingId db call) row next) ∨
      ∃ secret, Opens env config next.pairingId secret db call ∧
        next.pollingSecretSha256 = env.sha256 secret ∧ next.status = .pending := by
  rcases fades_of_effect (pairingEffect_run call db) with fades |
    ⟨payload, registration, pairingId, secret, code, created, asked, valid, done⟩ |
    ⟨payload, registration, previous, migrated, asked, valid, different, done, same⟩
  · obtain ⟨row, rowMem, related⟩ := fades.source member
    exact Or.inl ⟨row, rowMem, related.toProceeds⟩
  · obtain ⟨_, _, _, rows, _⟩ := createPairing_eq_ok done
    have split : next ∈ (db.expirePairings env call.now).pairings.rows ++
        [registration.pairing env config call.now pairingId secret code] := rows ▸ member
    rcases List.mem_append.mp split with kept | new
    · obtain ⟨row, rowMem, related⟩ := (fades_expirePairings _ db).source kept
      exact Or.inl ⟨row, rowMem, related.toProceeds⟩
    · rw [List.mem_singleton.mp new]
      have accepted : Accepted env config db call := by
        refine accepted_of_ok (by rw [asked]; rfl) (bind_eq_ok.mpr ⟨registration, valid, done⟩)
      exact Or.inr ⟨secret, ⟨⟨payload, code, asked⟩, accepted⟩, rfl, rfl⟩
  · obtain ⟨_, rows, _⟩ := migrateWorkerIdentity_eq_ok done
    rw [← same.pairings] at rows
    have renamed : next ∈ db.pairings.rows.map
        (PairingRow.renamed previous registration.workerId) := rows ▸ member
    obtain ⟨row, rowMem, rfl⟩ := List.mem_map.mp renamed
    refine Or.inl ⟨row, rowMem, ?_⟩
    unfold PairingRow.renamed
    split
    · exact ⟨rfl, rfl, id, Or.inl⟩
    · exact ⟨rfl, rfl, id, Or.inl⟩

/-- Every request goes to a request. -/
theorem proceeds_target {row : PairingRow} (member : row ∈ db.pairings) :
    ∃ next ∈ (nextDatabase env config db call).pairings,
      Proceeds (fun pairingId => Approves env config pairingId db call) row next := by
  rcases fades_of_effect (pairingEffect_run call db) with fades |
    ⟨payload, registration, pairingId, secret, code, created, asked, valid, done⟩ |
    ⟨payload, registration, previous, migrated, asked, valid, different, done, same⟩
  · obtain ⟨next, nextMem, related⟩ := fades.target member
    exact ⟨next, nextMem, related.toProceeds⟩
  · obtain ⟨_, _, _, rows, _⟩ := createPairing_eq_ok done
    obtain ⟨next, nextMem, related⟩ := (fades_expirePairings _ db).target member
    refine ⟨next, ?_, related.toProceeds⟩
    rw [Table.mem_def, nextDatabase, rows]
    exact List.mem_append_left _ nextMem
  · obtain ⟨_, rows, _⟩ := migrateWorkerIdentity_eq_ok done
    rw [← same.pairings] at rows
    refine ⟨row.renamed previous registration.workerId, ?_, ?_⟩
    · rw [Table.mem_def, nextDatabase, rows]
      exact List.mem_map_of_mem member
    · unfold PairingRow.renamed
      split
      · exact ⟨rfl, rfl, id, Or.inl⟩
      · exact ⟨rfl, rfl, id, Or.inl⟩

/-- The request is there and no longer live. -/
def Database.Over (db : Database) (pairingId : Text) : Prop :=
  ∃ row ∈ db.pairings, row.pairingId = pairingId ∧ row.status.live = false

theorem over_next {pairingId : Text} (closed : db.Over pairingId) :
    (nextDatabase env config db call).Over pairingId := by
  obtain ⟨row, member, sameId, dead⟩ := closed
  obtain ⟨next, nextMem, related⟩ := proceeds_target member
  refine ⟨next, nextMem, related.pairingId.trans sameId, ?_⟩
  cases live : next.status.live with
  | false => rfl
  | true =>
      rw [related.live live] at dead
      contradiction

theorem over_reached {pairingId : Text} (earlier later : List Call)
    (closed : (execute env config earlier Database.empty).Over pairingId) :
    (execute env config (earlier ++ later) Database.empty).Over pairingId := by
  induction later using List.reverseRecOn with
  | nil => simpa using closed
  | append_singleton later call ih =>
      rw [← List.append_assoc]
      unfold execute at ih ⊢
      rw [List.foldl_append]
      exact over_next ih

/-- Where the requests of a run come from. -/
structure Traced (env : Environment) (config : Config) (calls : List Call) (db : Database) :
    Prop where
  opened : ∀ row ∈ db.pairings, ∃ secret, row.pollingSecretSha256 = env.sha256 secret ∧
    Occurred env config (Opens env config row.pairingId secret) calls
  granted : ∀ row ∈ db.pairings, row.status.granted = true →
    Occurred env config (Approves env config row.pairingId) calls

theorem traced_execute (calls : List Call) :
    Traced env config calls (execute env config calls Database.empty) := by
  refine @trace_induction _ _ (nextDatabase env config) Database.empty (Traced env config) ?_ ?_
    calls
  · exact ⟨fun row member => absurd member (Table.not_mem_empty row),
      fun row member => absurd member (Table.not_mem_empty row)⟩
  · intro calls call traced
    constructor
    · intro next member
      rcases proceeds_source member with ⟨row, rowMem, related⟩ | ⟨secret, opens, digest, _⟩
      · obtain ⟨secret, digest, occurred⟩ := traced.opened row rowMem
        rw [related.pairingId, related.secret]
        exact ⟨secret, digest, happened_concat_iff.mpr (Or.inl occurred)⟩
      · exact ⟨secret, digest, happened_concat_iff.mpr (Or.inr opens)⟩
    · intro next member granted
      rcases proceeds_source member with ⟨row, rowMem, related⟩ | ⟨_, _, _, pending⟩
      · rw [related.pairingId]
        rcases related.granted granted with earlier | approves
        · exact happened_concat_iff.mpr (Or.inl (traced.granted row rowMem earlier))
        · exact happened_concat_iff.mpr (Or.inr approves)
      · simp [pending, PairingStatus.granted] at granted

/-! ## The poll that issues -/

/-- A request that is approved after the sweep was approved before it, and its
stored expiry is after the clock. -/
theorem eq_of_swept_approved {row : PairingRow} (approved : (row.swept env now).status = .approved) :
    row.swept env now = row ∧ ¬ env.timestamp row.expiresAt ≤ env.timestamp now := by
  unfold PairingRow.swept at approved ⊢
  split
  · rename_i due
    rw [if_pos due] at approved
    contradiction
  · rename_i kept
    rw [if_neg kept] at approved
    refine ⟨rfl, fun due => kept ⟨?_, due⟩⟩
    simp [approved, PairingStatus.live]

/-- What a token tells about the request and about the database it leaves. -/
theorem Issues.approved {pairingId secret token : Text}
    (issues : Issues env config pairingId secret token db call) :
    ∃ row ∈ db.pairings, row.pairingId = pairingId ∧ row.status = .approved ∧
      ¬ env.timestamp row.expiresAt ≤ env.timestamp call.now ∧
      row.pollingSecretSha256 = env.sha256 secret ∧
      (nextDatabase env config db call).Over pairingId := by
  obtain ⟨offered, answered, asked, reply⟩ := issues
  unfold nextDatabase
  rw [asked] at reply ⊢
  simp only [Operation.run, answering] at reply ⊢
  rcases commit_cases (Database.pollPairing env call.now pairingId secret offered) db with
    ⟨answer, next, done, equal⟩ | ⟨failure, _, equal⟩
  · rw [equal] at reply ⊢
    obtain ⟨old, found, digest, ⟨approved, _, _, stored, credential, rfl⟩ | ⟨_, none, _, _⟩⟩ :=
      pollPairing_eq_ok done
    · obtain ⟨member, sameId⟩ := Table.find?_eq_some_iff.mp found
      rw [Table.mem_def, rows_expirePairings] at member
      obtain ⟨row, rowMem, swept⟩ := List.mem_map.mp member
      rw [← swept] at approved
      obtain ⟨same, current⟩ := eq_of_swept_approved approved
      rw [same] at swept approved
      subst swept
      have kept : row ∈ stored.pairings := by
        rw [(storeCredential_eq_ok credential).1]
        exact (Table.find?_eq_some_iff.mp found).1
      exact ⟨row, rowMem, sameId, approved, current, digest, row.consumed call.now,
        mem_updatePairing _ _ kept sameId, sameId, rfl⟩
    · simp [Except.map, none] at reply
  · rw [equal] at reply
    contradiction

theorem Rejects.over {pairingId : Text} (rejects : Rejects env config pairingId db call) :
    (nextDatabase env config db call).Over pairingId := by
  obtain ⟨asked, answer, reply⟩ := rejects
  unfold nextDatabase
  rw [asked] at reply ⊢
  simp only [Operation.run, answering] at reply ⊢
  rcases commit_cases (Database.rejectPairing env call.now pairingId) db with
    ⟨_, next, done, equal⟩ | ⟨failure, _, equal⟩
  · rw [equal]
    obtain ⟨old, found, ⟨rejected, rfl⟩ | ⟨_, rfl⟩⟩ := rejectPairing_eq_ok done
    · obtain ⟨member, sameId⟩ := Table.find?_eq_some_iff.mp found
      exact ⟨old, member, sameId, by simp [rejected, PairingStatus.live]⟩
    · obtain ⟨member, sameId⟩ := Table.find?_eq_some_iff.mp found
      exact ⟨old.rejected, mem_updatePairing _ _ member sameId, sameId, rfl⟩
  · rw [equal] at reply
    contradiction

/-- Nothing that ended the request stands before the poll that issues. -/
theorem Issues.not_over {pairingId secret token : Text}
    (issues : Issues env config pairingId secret token db call) : ¬ db.Over pairingId := by
  rintro ⟨other, otherMem, otherId, dead⟩
  obtain ⟨row, member, sameId, approved, _⟩ := issues.approved
  rw [db.pairings.key_injective otherMem member (otherId.trans sameId.symm), approved] at dead
  contradiction

theorem not_occurred_of_over {pairingId : Text} {P : Database → Call → Prop}
    (ends : ∀ {db call}, P db call → (nextDatabase env config db call).Over pairingId)
    (alive : ¬ (execute env config calls Database.empty).Over pairingId) :
    ¬ Occurred env config P calls := by
  rintro ⟨earlier, call, later, rfl, holds⟩
  refine alive ?_
  have closed : (execute env config (earlier ++ [call]) Database.empty).Over pairingId := by
    unfold execute
    rw [List.foldl_append]
    exact ends holds
  simpa using over_reached (earlier ++ [call]) later closed

/-! ## The owners of the tokens -/

/-- A token that was issued, with the identity its worker has now. -/
structure Issue where
  pairingId : Text
  workerId : Text
  token : Text

/-- The worker of an issue under a new name. -/
def Issue.renamed (previous workerId : Text) (issue : Issue) : Issue :=
  if issue.workerId = previous then { issue with workerId } else issue

/-- What a call does to the issues: a poll that answers with a token adds one,
and a registration that migrates an identity renames its worker. -/
def issuesAfter (env : Environment) (config : Config) (db : Database) (issues : List Issue)
    (call : Call) : List Issue :=
  match call.operation, (call.operation.run env config call.now db).1 with
  | .pollPairing pairingId _ _, .ok (.pairing row (some token)) =>
      issues ++ [⟨pairingId, row.workerId, token⟩]
  | .registerWorker payload (some previous), .ok _ =>
      if previous ≠ [] ∧ previous ≠ payload.workerId then
        issues.map (Issue.renamed previous payload.workerId)
      else issues
  | _, _ => issues

/-- The database and the issues after a run. -/
def ledger (env : Environment) (config : Config) (calls : List Call) : Database × List Issue :=
  reached (fun state call => (nextDatabase env config state.1 call,
    issuesAfter env config state.1 state.2 call)) (Database.empty, []) calls

/-- The last issue to a worker. -/
def lastIssue (workerId : Text) (issues : List Issue) : Option Issue :=
  (issues.filter fun issue => issue.workerId = workerId).getLast?

/-- The credential of every worker is that of the last issue to it. -/
def Credited (env : Environment) (db : Database) (issues : List Issue) : Prop :=
  ∀ workerId, (db.credentials.find? workerId).map (fun row => (row.tokenSha256, row.revokedAt)) =
    (lastIssue workerId issues).map fun issue => (env.sha256 issue.token, none)

theorem credited_empty : Credited env Database.empty [] :=
  fun _ => rfl

variable {issues : List Issue}

theorem Credited.of_eq (credited : Credited env db issues)
    (same : after.credentials = db.credentials) : Credited env after issues := by
  intro workerId
  rw [same]
  exact credited workerId

theorem lastIssue_concat (workerId : Text) (issue : Issue) :
    lastIssue workerId (issues ++ [issue]) =
      if issue.workerId = workerId then some issue else lastIssue workerId issues := by
  unfold lastIssue
  rw [List.filter_append]
  by_cases same : issue.workerId = workerId
  · simp [same]
  · simp [same]

/-- The poll of an approved request. -/
theorem Credited.issued (credited : Credited env db issues) {pairingId token : Text}
    {row : PairingRow} {stored : Database}
    (done : db.storeCredential (row.credential env now token) = .ok stored)
    (same : after.credentials = stored.credentials) :
    Credited env after (issues ++ [⟨pairingId, row.workerId, token⟩]) := by
  obtain ⟨_, own, others⟩ := storeCredential_eq_ok done
  intro workerId
  rw [same, lastIssue_concat]
  by_cases mine : workerId = row.workerId
  · rw [if_pos mine.symm, mine]
    have found : stored.credentials.find? row.workerId = some (row.credential env now token) := own
    rw [found]
    rfl
  · rw [if_neg (Ne.symm mine), others workerId mine]
    exact credited workerId

/-- A worker without a credential has no issue. -/
theorem Credited.workerId_ne (credited : Credited env db issues) {workerId : Text}
    (none : db.credentials.find? workerId = none) : ∀ issue ∈ issues, issue.workerId ≠ workerId := by
  intro issue member same
  have nothing := credited workerId
  rw [none, Option.map_none, eq_comm, Option.map_eq_none_iff, lastIssue,
    List.getLast?_eq_none_iff, List.filter_eq_nil_iff] at nothing
  exact nothing issue member (by simp [same])

theorem lastIssue_renamed_self {previous workerId : Text}
    (fresh : ∀ issue ∈ issues, issue.workerId ≠ workerId) :
    (lastIssue workerId (issues.map (Issue.renamed previous workerId))).map Issue.token =
      (lastIssue previous issues).map Issue.token := by
  have filtered : (issues.map (Issue.renamed previous workerId)).filter
      (fun issue => issue.workerId = workerId) =
      (issues.filter fun issue => issue.workerId = previous).map
        (Issue.renamed previous workerId) := by
    rw [List.filter_map]
    congr 1
    refine List.filter_congr fun issue member => ?_
    simp only [Function.comp_apply, Issue.renamed]
    split
    · rename_i old
      simp [old]
    · rename_i other
      simp [other, fresh issue member]
  unfold lastIssue
  rw [filtered, List.getLast?_map, Option.map_map]
  congr 1
  funext issue
  simp only [Function.comp_apply, Issue.renamed]
  split <;> rfl

theorem lastIssue_renamed_previous {previous workerId : Text} (different : previous ≠ workerId) :
    lastIssue previous (issues.map (Issue.renamed previous workerId)) = none := by
  unfold lastIssue
  rw [List.getLast?_eq_none_iff, List.filter_eq_nil_iff]
  intro issue member same
  obtain ⟨source, _, rfl⟩ := List.mem_map.mp member
  unfold Issue.renamed at same
  split at same
  · simp [Ne.symm different] at same
  · rename_i other
    exact other (by simpa using same)

theorem lastIssue_renamed_other {previous workerId other : Text} (notOld : other ≠ previous)
    (notNew : other ≠ workerId) :
    lastIssue other (issues.map (Issue.renamed previous workerId)) = lastIssue other issues := by
  unfold lastIssue
  rw [List.filter_map]
  have kept : ∀ issue ∈ issues.filter fun issue => issue.workerId = other,
      Issue.renamed previous workerId issue = issue := by
    intro issue member
    have owner : issue.workerId = other := by simpa using (List.mem_filter.mp member).2
    rw [Issue.renamed, if_neg (owner ▸ notOld)]
  have same : (issues.filter ((fun issue => decide (issue.workerId = other)) ∘
      Issue.renamed previous workerId)) = issues.filter fun issue => issue.workerId = other := by
    refine List.filter_congr fun issue _ => ?_
    simp only [Function.comp_apply, Issue.renamed]
    split
    · rename_i old
      simp [old, Ne.symm notOld, Ne.symm notNew]
    · rfl
  rw [same, List.map_congr_left kept, List.map_id']

/-- The migration of an identity. -/
theorem Credited.renamed (credited : Credited env db issues) {previous workerId : Text}
    (different : previous ≠ workerId) {migrated : Database}
    (done : db.migrateWorkerIdentity previous workerId = .ok migrated)
    (same : after.credentials = migrated.credentials) :
    Credited env after (issues.map (Issue.renamed previous workerId)) := by
  obtain ⟨⟨untaken, _, _⟩, _, rows⟩ := migrateWorkerIdentity_eq_ok done
  intro other
  rw [same, Table.find?_rekeyed (fun row => { row with workerId }) (fun _ => rfl) untaken
    different rows]
  by_cases isNew : other = workerId
  · have owner := credited previous
    have renamed : (lastIssue workerId (issues.map (Issue.renamed previous workerId))).map
        Issue.token = (lastIssue previous issues).map Issue.token :=
      lastIssue_renamed_self (credited.workerId_ne untaken)
    have tokens := congrArg (Option.map fun token => (env.sha256 token, (none : Option Int)))
      renamed
    rw [Option.map_map, Option.map_map] at tokens
    rw [if_pos isNew, isNew, Option.map_map]
    exact owner.trans tokens.symm
  · rw [if_neg isNew]
    by_cases isOld : other = previous
    · rw [if_pos isOld, isOld, lastIssue_renamed_previous different]
      rfl
    · rw [if_neg isOld, lastIssue_renamed_other isOld isNew]
      exact credited other

theorem credited_poll (credited : Credited env db issues) (pairingId secret token : Text) :
    Credited env (nextDatabase env config db ⟨now, .pollPairing pairingId secret token⟩)
      (issuesAfter env config db issues ⟨now, .pollPairing pairingId secret token⟩) := by
  unfold issuesAfter nextDatabase
  simp only [Operation.run, answering]
  rcases commit_cases (Database.pollPairing env now pairingId secret token) db with
    ⟨⟨row, issued⟩, next, done, equal⟩ | ⟨failure, _, equal⟩
  · obtain ⟨old, found, digest, ⟨approved, rfl, rfl, stored, credential, rfl⟩ | ⟨_, rfl, rfl, rfl⟩⟩ :=
      pollPairing_eq_ok done
    · rw [equal]
      have swept : Credited env (db.expirePairings env now) issues := credited.of_eq rfl
      exact swept.issued credential rfl
    · rw [equal]
      exact credited.of_eq rfl
  · rw [equal]
    exact credited

theorem credited_register (credited : Credited env db issues) (payload : RegistrationPayload)
    (previousWorkerId : Option Text) :
    Credited env (nextDatabase env config db ⟨now, .registerWorker payload previousWorkerId⟩)
      (issuesAfter env config db issues ⟨now, .registerWorker payload previousWorkerId⟩) := by
  unfold issuesAfter nextDatabase
  simp only [Operation.run, answering]
  rcases commit_cases (fun db : Database => do
      let registration ← Registration.validate payload
      db.registerWorker now registration previousWorkerId) db with
    ⟨row, next, done, equal⟩ | ⟨failure, _, equal⟩
  · rw [equal]
    obtain ⟨registration, valid, registered⟩ := bind_eq_ok.mp done
    obtain ⟨migrated, migration, same⟩ := registerWorker_eq_ok registered
    have sameId := workerId_of_validate valid
    unfold Database.migrateIfRenamed at migration
    cases previousWorkerId with
    | none =>
        cases migration
        exact credited.of_eq same.credentials
    | some previous =>
        simp only [Except.map]
        rw [← sameId]
        dsimp only at migration
        split at migration
        · rename_i different
          rw [if_pos different]
          exact credited.renamed different.2 migration same.credentials
        · rename_i unchanged
          cases migration
          rw [if_neg unchanged]
          exact credited.of_eq same.credentials
  · rw [equal]
    cases previousWorkerId with
    | none => exact credited
    | some previous => exact credited

/-- Every call keeps the credentials with their issues. -/
theorem Credited.next (credited : Credited env db issues) (call : Call) :
    Credited env (nextDatabase env config db call) (issuesAfter env config db issues call) := by
  obtain ⟨now, operation⟩ := call
  by_cases poll : ∃ pairingId secret token, operation = .pollPairing pairingId secret token
  · obtain ⟨pairingId, secret, token, rfl⟩ := poll
    exact credited_poll credited pairingId secret token
  by_cases register : ∃ payload previous, operation = .registerWorker payload previous
  · obtain ⟨payload, previous, rfl⟩ := register
    exact credited_register credited payload previous
  push Not at poll register
  have unchanged : issuesAfter env config db issues ⟨now, operation⟩ = issues := by
    unfold issuesAfter
    split
    · exact absurd ‹_› (poll _ _ _)
    · exact absurd ‹_› (register _ _)
    · rfl
  have effect : PairingEffect env config ⟨now, operation⟩ db
      (nextDatabase env config db ⟨now, operation⟩) := pairingEffect_run ⟨now, operation⟩ db
  rw [unchanged]
  refine credited.of_eq ?_
  generalize nextDatabase env config db ⟨now, operation⟩ = after at effect
  cases effect with
  | aside same => exact same.credentials
  | listed => rfl
  | created asked valid done => exact (createPairing_eq_ok done).2.2.2.2
  | approved asked done =>
      obtain ⟨old, _, ⟨_, equal⟩ | ⟨_, equal⟩⟩ := approvePairing_eq_ok done
      · rw [equal]
        rfl
      · rw [equal]
        rfl
  | rejected asked done =>
      obtain ⟨old, _, ⟨_, equal⟩ | ⟨_, equal⟩⟩ := rejectPairing_eq_ok done
      · rw [equal]
        rfl
      · rw [equal]
        rfl
  | polled asked done => exact absurd asked (poll _ _ _)
  | migrated asked valid different done same => exact absurd asked (register _ _)

/-! ## Whole runs -/

/-- The tokens issued in a run. -/
def issued (env : Environment) (config : Config) (calls : List Call) : List Issue :=
  (ledger env config calls).2

theorem credited_execute (calls : List Call) :
    Credited env (execute env config calls Database.empty) (issued env config calls) := by
  have both : (ledger env config calls).1 = execute env config calls Database.empty ∧
      Credited env (ledger env config calls).1 (ledger env config calls).2 := by
    unfold ledger
    refine trace_induction (I := fun calls (state : Database × List Issue) =>
      state.1 = execute env config calls Database.empty ∧ Credited env state.1 state.2) ?_ ?_ calls
    · exact ⟨rfl, credited_empty⟩
    · rintro calls call ⟨same, credited⟩
      refine ⟨?_, credited.next call⟩
      unfold execute at same ⊢
      rw [List.foldl_append, ← same]
      rfl
  rw [← both.1]
  exact both.2

theorem authorizeWorker_iff {workerId token : Text} :
    db.authorizeWorker env workerId token none = true ↔
      (db.credentials.find? workerId).map (fun row => (row.tokenSha256, row.revokedAt)) =
        some (env.sha256 token, none) := by
  unfold Database.authorizeWorker Database.activeCredential
  cases found : db.credentials.find? workerId with
  | none => simp
  | some row =>
      cases revoked : row.revokedAt with
      | none => simp [revoked, Option.filter]
      | some at_ => simp [revoked, Option.filter]

/-- The old identity is paired a second time and then renamed. -/
def renamedWorker : List Call :=
  pairedOnce ++ [secondsIn 3 (.createPairing (announcement oldName) ['q'] ['r'] ['c']),
    secondsIn 4 (.approvePairing ['q']),
    secondsIn 5 (.pollPairing ['q'] ['r'] ['u']),
    secondsIn 6 (.registerWorker (announcement newName) (some oldName))]

end OhanaAgent.Jobs
