import OhanaAgent.Jobs.Credentials

/-!
# Worker identities

Every worker identity that the pairing requests and the credentials store is one
that a contract has accepted, whatever the repository was asked before.
-/

namespace OhanaAgent.Jobs

open OhanaAgent.Encoding.Json
open OhanaAgent.Store
open OhanaAgent.Transition

variable {env : Environment} {config : Config} {now : Int} {db after : Database} {call : Call}

/-- The stored identities match the pattern of the contracts. -/
structure Named (db : Database) : Prop where
  pairings : ∀ row ∈ db.pairings, isWorkerId row.workerId = true
  credentials : ∀ row ∈ db.credentials, isWorkerId row.workerId = true

theorem named_empty : Named Database.empty :=
  ⟨fun row member => absurd member (Table.not_mem_empty row),
    fun row member => absurd member (Table.not_mem_empty row)⟩

theorem isWorkerId_of_validate {payload : RegistrationPayload} {registration : Registration}
    (valid : Registration.validate payload = .ok registration) :
    isWorkerId registration.workerId = true := by
  rw [workerId_of_validate valid]
  unfold Registration.validate at valid
  split at valid
  · rename_i checks
    simp only [Bool.and_eq_true] at checks
    exact checks.1.1.1.1.1.1
  · simp at valid

/-- The requests after a call. -/
theorem Named.pairings_step (named : Named db) (effect : PairingEffect env config call db after) :
    ∀ row ∈ after.pairings, isWorkerId row.workerId = true := by
  rcases fades_of_effect effect with fades |
    ⟨payload, registration, pairingId, secret, code, created, asked, valid, done⟩ |
    ⟨payload, registration, previous, migrated, asked, valid, different, done, same⟩
  · intro next member
    rcases fades.source member with ⟨row, rowMem, related⟩
    rw [related.workerId]
    exact named.pairings row rowMem
  · intro next member
    rcases createPairing_eq_ok done with ⟨_, _, _, rows, _⟩
    rw [Table.mem_def, rows] at member
    rcases List.mem_append.mp member with kept | new
    · rcases (fades_expirePairings (fun _ => True) db).source kept with ⟨row, rowMem, related⟩
      rw [related.workerId]
      exact named.pairings row rowMem
    · rw [List.mem_singleton.mp new]
      exact isWorkerId_of_validate valid
  · intro next member
    rcases migrateWorkerIdentity_eq_ok done with ⟨_, rows, _⟩
    rw [Table.mem_def, same.pairings, rows] at member
    rcases List.mem_map.mp member with ⟨row, rowMem, rfl⟩
    unfold PairingRow.renamed
    split
    · exact isWorkerId_of_validate valid
    · exact named.pairings row rowMem

/-- The credentials after a poll that issues one. -/
theorem Named.stored (named : Named db) {credential : CredentialRow}
    (valid : isWorkerId credential.workerId = true)
    (done : db.storeCredential credential = .ok after) :
    ∀ row ∈ after.credentials, isWorkerId row.workerId = true := by
  intro row member
  rcases storeCredential_eq_ok done with ⟨_, _, others⟩
  by_cases same : row.workerId = credential.workerId
  · rw [same]
    exact valid
  · have found : after.credentials.find? row.workerId = some row :=
      Table.find?_eq_some_iff.mpr ⟨member, rfl⟩
    rw [others row.workerId same] at found
    exact named.credentials row (Table.find?_eq_some_iff.mp found).1

/-- The credentials after a call. -/
theorem Named.credentials_step (named : Named db)
    (effect : PairingEffect env config call db after) :
    ∀ row ∈ after.credentials, isWorkerId row.workerId = true := by
  cases effect with
  | aside same =>
      rw [same.credentials]
      exact named.credentials
  | listed => exact named.credentials
  | created asked valid done =>
      rcases createPairing_eq_ok done with ⟨_, _, _, _, same⟩
      rw [same]
      exact named.credentials
  | approved asked done =>
      rcases approvePairing_eq_ok done with ⟨_, _, ⟨_, rfl⟩ | ⟨_, rfl⟩⟩
      · exact named.credentials
      · exact named.credentials
  | rejected asked done =>
      rcases rejectPairing_eq_ok done with ⟨_, _, ⟨_, rfl⟩ | ⟨_, rfl⟩⟩
      · exact named.credentials
      · exact named.credentials
  | polled asked done =>
      have swept : Named (db.expirePairings env call.now) := by
        constructor
        · intro row member
          rcases (fades_expirePairings (fun _ => True) db).source member with
            ⟨old, oldMem, related⟩
          rw [related.workerId]
          exact named.pairings old oldMem
        · exact named.credentials
      rcases pollPairing_eq_ok done with
        ⟨old, found, _, ⟨_, _, _, stored, credential, rfl⟩ | ⟨_, _, _, rfl⟩⟩
      · have valid := swept.pairings old (Table.find?_eq_some_iff.mp found).1
        have written : ∀ row ∈ stored.credentials, isWorkerId row.workerId = true :=
          swept.stored valid credential
        exact written
      · exact named.credentials
  | migrated asked valid different done same =>
      rcases migrateWorkerIdentity_eq_ok done with ⟨_, _, rows⟩
      intro next member
      rw [Table.mem_def, same.credentials, rows] at member
      rcases List.mem_map.mp member with ⟨row, rowMem, rfl⟩
      split
      · exact isWorkerId_of_validate valid
      · exact named.credentials row rowMem

/-- Every reached database stores valid identities. -/
theorem named_execute (calls : List Call) : Named (execute env config calls Database.empty) := by
  have run : Run (Step env config) Database.empty calls
      (execute env config calls Database.empty) := run_execute calls _
  apply run.invariant _ named_empty
  rintro source call target named rfl
  have effect : PairingEffect env config call source
      (call.operation.run env config call.now source).2 := pairingEffect_run call source
  constructor
  · exact named.pairings_step effect
  · exact named.credentials_step effect

/-! ## Authorizations -/

/-- An active credential belongs to a valid identity. -/
theorem Named.active (named : Named db) {workerId : Text} {row : CredentialRow}
    (found : db.activeCredential workerId = some row) : isWorkerId workerId = true := by
  unfold Database.activeCredential at found
  rcases Option.filter_eq_some_iff.mp found with ⟨stored, _⟩
  rcases Table.find?_eq_some_iff.mp stored with ⟨member, same⟩
  rw [← same]
  exact named.credentials row member

/-- An authorized identity is valid. -/
theorem Named.authorized (named : Named db) {workerId token : Text}
    (authorized : db.authorizeWorker env workerId token none = true) :
    isWorkerId workerId = true := by
  cases found : db.activeCredential workerId with
  | none => simp [Database.authorizeWorker, found] at authorized
  | some row => exact named.active found

/-- The token is the one of the worker, or of the previous identity that the
request names. -/
theorem authorizeWorker_cases {workerId token : Text} {previousWorkerId : Option Text}
    (authorized : db.authorizeWorker env workerId token previousWorkerId = true) :
    db.authorizeWorker env workerId token none = true ∨
      ∃ previous ∈ previousWorkerId, db.authorizeWorker env previous token none = true := by
  unfold Database.authorizeWorker at authorized ⊢
  dsimp only at authorized ⊢
  cases found : db.activeCredential workerId with
  | some row =>
      rw [found, Option.some_or] at authorized
      exact Or.inl authorized
  | none =>
      rw [found, Option.none_or] at authorized
      cases previousWorkerId with
      | none => simp at authorized
      | some previous =>
          refine Or.inr ⟨previous, rfl, ?_⟩
          by_cases named : previous ≠ [] ∧ previous ≠ workerId
          · simpa [Option.filter, named] using authorized
          · simp [Option.filter, named] at authorized

/-- The characters of an identity lie between the hyphen and `z`. -/
theorem isWorkerId_chars {workerId : Text} (valid : isWorkerId workerId = true) :
    ∀ c ∈ workerId, 45 ≤ c.toNat ∧ c.toNat ≤ 122 := by
  unfold isWorkerId at valid
  rw [Bool.and_eq_true, List.all_eq_true] at valid
  intro c member
  have class_ := valid.2 c member
  simp only [isLower, isUpper, Char.isDigit, Bool.or_eq_true, Bool.and_eq_true,
    decide_eq_true_eq, beq_iff_eq, Char.le_def, UInt32.le_iff_toNat_le] at class_
  rcases class_ with (((((lower | upper) | digit) | rfl) | rfl) | rfl) | rfl
  · exact ⟨le_trans (by decide) lower.1, lower.2⟩
  · exact ⟨le_trans (by decide) upper.1, le_trans upper.2 (by decide)⟩
  · exact ⟨le_trans (by decide) digit.1, le_trans digit.2 (by decide)⟩
  · decide
  · decide
  · decide
  · decide

end OhanaAgent.Jobs
